import KasterCti.Library.JsText
import KasterCti.Library.Trace
import Mathlib

/-!
# Customers and their telephone numbers

`CustomersService`: `createCustomer`, `updateCustomer`, `deleteCustomer` and
`importCustomers`, on any number of nodes. The numbers are checked one by one before the
write. A write is a transaction; that of an update reads the active phones in its first
statement and commits later.

Results:
1. `sanitizePhoneList_ok`: the numbers of a request differ, and one of them is primary.
2. `customerStep_one`: a step keeps one customer for each number exactly when no other
   customer has come by a number since it was checked.
3. `one_customer_per_number`: the same for runs.
4. `primary_phone_stays`: no run leaves an active customer without a primary phone.
5. `two_customers_one_number`: two requests that check before either writes.
-/

namespace KasterCti.Customers

open JsText Trace

/-! ## 1. The numbers of a request -/

structure PhoneEntry where
  phoneNumber : String
  normalizedPhone : String
  isPrimary : Bool

/-- The fields of the DTOs that hold numbers. -/
structure PhoneInput where
  primaryPhoneNumber : String
  extraPhoneNumbers : List String

/-- `raw.replace(/\D+/g, '')` -/
def normalizePhone (raw : String) : String := String.ofList (raw.toList.filter isDigit)

/-- The entries of a `Map` by number: the first one of each stays. -/
def dedupe (entries : List PhoneEntry) : List PhoneEntry :=
  entries.foldl (fun kept entry =>
    if kept.any (·.normalizedPhone = entry.normalizedPhone) then kept else kept ++ [entry]) []

/-- The entries that hold a number, the primary one first. -/
def phoneEntries (input : PhoneInput) : List PhoneEntry :=
  let primary : PhoneEntry :=
    ⟨trim input.primaryPhoneNumber, normalizePhone input.primaryPhoneNumber, true⟩
  let extra := input.extraPhoneNumbers.map fun phoneNumber =>
    (⟨trim phoneNumber, normalizePhone phoneNumber, false⟩ : PhoneEntry)
  (primary :: extra).filter fun entry => entry.phoneNumber ≠ "" && entry.normalizedPhone ≠ ""

def sanitizePhoneList (input : PhoneInput) : Except String (List PhoneEntry) :=
  if phoneEntries input = [] then .error "대표 전화번호는 필수입니다."
  else
    let values := dedupe (phoneEntries input)
    match values.find? (·.isPrimary) with
    | none => .error "대표 전화번호는 필수입니다."
    | some primary => .ok (values.map fun entry =>
        { entry with isPrimary := entry.normalizedPhone = primary.normalizedPhone })

def numbers (phones : List PhoneEntry) : List String := phones.map (·.normalizedPhone)

/-- What a request writes: different numbers, one of them primary. -/
structure Sanitized (phones : List PhoneEntry) : Prop where
  differ : (numbers phones).Nodup
  primary : (phones.filter (·.isPrimary)).length = 1

theorem dedupe_differ (entries : List PhoneEntry) : (numbers (dedupe entries)).Nodup := by
  unfold dedupe
  induction entries using List.reverseRecOn with
  | nil => exact List.nodup_nil
  | append_singleton entries entry ih =>
    rw [List.foldl_append, List.foldl_cons, List.foldl_nil]
    split
    · exact ih
    · next hnew =>
      unfold numbers at ih ⊢
      rw [List.map_append]
      refine List.Nodup.append ih (List.nodup_singleton _) ?_
      intro number hold hsame
      obtain ⟨kept, hkept, rfl⟩ := List.mem_map.mp hold
      have hsame := List.mem_singleton.mp hsame
      exact hnew (List.any_eq_true.mpr ⟨kept, hkept, decide_eq_true hsame⟩)

/-- Among different numbers one has a given value, where it is there at all. -/
theorem length_filter_number {phones : List PhoneEntry} (hdiffer : (numbers phones).Nodup)
    {entry : PhoneEntry} (hmem : entry ∈ phones) :
    (phones.filter (·.normalizedPhone = entry.normalizedPhone)).length = 1 := by
  have hcount : (numbers phones).count entry.normalizedPhone = 1 :=
    List.count_eq_one_of_mem hdiffer (List.mem_map_of_mem hmem)
  rw [numbers, List.count, List.countP_map, List.countP_eq_length_filter] at hcount
  exact hcount

theorem sanitizePhoneList_ok {input : PhoneInput} {phones : List PhoneEntry}
    (h : sanitizePhoneList input = .ok phones) : Sanitized phones := by
  unfold sanitizePhoneList at h
  dsimp only at h
  split at h
  · cases h
  split at h
  · cases h
  next primary hfind =>
    obtain rfl := Except.ok.inj h
    have hdiffer := dedupe_differ (phoneEntries input)
    refine ⟨?_, ?_⟩
    · unfold numbers at hdiffer ⊢
      rw [List.map_map]
      exact hdiffer
    · rw [List.filter_map, List.length_map]
      exact length_filter_number hdiffer (List.mem_of_find?_eq_some hfind)

/-! ## 2. Tables -/

/-- A row of `customers`; `active` is its status. -/
structure Customer where
  tenantId : String
  active : Bool
deriving DecidableEq

/-- A row of `customerPhones`, unique in `(customerId, normalizedPhone)`. -/
structure CustomerPhone where
  customerId : Nat
  phoneNumber : String
  normalizedPhone : String
  isPrimary : Bool
  isActive : Bool
deriving DecidableEq

structure CustomerTables where
  customers : Nat → Option Customer
  nextCustomer : Nat
  phones : List CustomerPhone

namespace CustomerTables

def setCustomer (t : CustomerTables) (customerId : Nat) (row : Customer) : CustomerTables :=
  { t with customers := fun id => if id = customerId then some row else t.customers id }

/-- `findFirst` with tenant, id and status. -/
def findActive (t : CustomerTables) (tenantId : String) (customerId : Nat) : Option Customer :=
  (t.customers customerId).filter fun row => row.tenantId = tenantId && row.active

/-- The `findFirst` of `assertPhonesAvailable`: the status of the owner does not matter. -/
def taken (t : CustomerTables) (tenantId number : String) (excluded : Option Nat) : Bool :=
  t.phones.any fun p => p.normalizedPhone = number && p.isActive &&
    (t.customers p.customerId).any (·.tenantId = tenantId) && some p.customerId ≠ excluded

/-- The numbers of the active phones of a customer. -/
def activeNumbers (t : CustomerTables) (customerId : Nat) : List String :=
  (t.phones.filter fun p => p.customerId = customerId && p.isActive).map (·.normalizedPhone)

/-- `updateMany` of the rows with these numbers. -/
def deactivate (t : CustomerTables) (customerId : Nat) (numbers : List String) : CustomerTables :=
  { t with phones := t.phones.map fun p =>
      if p.customerId = customerId && p.normalizedPhone ∈ numbers then { p with isActive := false }
      else p }

end CustomerTables

def PhoneEntry.row (entry : PhoneEntry) (customerId : Nat) : CustomerPhone :=
  ⟨customerId, entry.phoneNumber, entry.normalizedPhone, entry.isPrimary, true⟩

namespace CustomerTables

/-- No row of the customer has one of the numbers, active or not. -/
def unused (t : CustomerTables) (customerId : Nat) (phones : List PhoneEntry) : Bool :=
  t.phones.all fun p => p.customerId ≠ customerId || p.normalizedPhone ∉ numbers phones

def insertPhones (t : CustomerTables) (customerId : Nat) (phones : List PhoneEntry) :
    CustomerTables :=
  { t with phones := t.phones ++ phones.map (·.row customerId) }

def addCustomer (t : CustomerTables) (row : Customer) : CustomerTables :=
  ⟨(t.setCustomer t.nextCustomer row).customers, t.nextCustomer + 1, t.phones⟩

/-- `customers.create` with its phones. -/
def createCustomer (t : CustomerTables) (tenantId : String) (phones : List PhoneEntry) :
    CustomerTables :=
  (t.addCustomer ⟨tenantId, true⟩).insertPhones t.nextCustomer phones

/-- The transaction of an update, whose first statement saw the given numbers. It is rolled
back where a row of the customer has one of the new numbers. -/
def replacePhones (t : CustomerTables) (customerId : Nat) (seen : List String)
    (phones : List PhoneEntry) : CustomerTables :=
  if t.unused customerId phones then (t.deactivate customerId seen).insertPhones customerId phones
  else t

def deleteCustomer (t : CustomerTables) (customerId : Nat) : CustomerTables :=
  match t.customers customerId with
  | none => t
  | some row => (t.deactivate customerId (t.activeNumbers customerId)).setCustomer customerId
      { row with active := false }

end CustomerTables

/-! ## 3. Requests -/

inductive UpdatePhase
  | finding (input : PhoneInput)
  /-- With nothing left to check, the transaction begins. -/
  | checking (phones : List PhoneEntry) (todo : List String)
  | committing (phones : List PhoneEntry) (seen : List String)

/-- A request, or a row of an import with those behind it. -/
inductive CustomerCall
  | create (tenantId : String) (phones : List PhoneEntry) (todo : List String)
    (rows : List PhoneInput)
  | update (tenantId : String) (customerId : Nat) (phase : UpdatePhase)
  | delete (tenantId : String) (customerId : Nat) (found : Bool)

structure CustomerState where
  tables : CustomerTables
  calls : Nat → Option CustomerCall
  nextCall : Nat

inductive CustomerAction
  | createCustomer (tenantId : String) (input : PhoneInput)
  | updateCustomer (tenantId : String) (customerId : Nat) (input : PhoneInput)
  | deleteCustomer (tenantId : String) (customerId : Nat)
  | importCustomers (tenantId : String) (rows : List PhoneInput)
  /-- The statement of a request comes back. -/
  | next (call : Nat) (fails : Bool)

/-- The next row of an import that gets past its checks of form. -/
def importRows (tenantId : String) : List PhoneInput → Option CustomerCall
  | [] => none
  | row :: rows =>
    match sanitizePhoneList row with
    | .error _ => importRows tenantId rows
    | .ok phones => some (.create tenantId phones (numbers phones) rows)

namespace CustomerState

def setCall (s : CustomerState) (n : Nat) (call : Option CustomerCall) : CustomerState :=
  { s with calls := fun m => if m = n then call else s.calls m }

def setTables (s : CustomerState) (tables : CustomerTables) : CustomerState :=
  { s with tables := tables }

def begin (s : CustomerState) (call : Option CustomerCall) : CustomerState :=
  { s with nextCall := s.nextCall + 1 }.setCall s.nextCall call

def createNext (s : CustomerState) (n : Nat) (fails : Bool) (tenantId : String)
    (phones : List PhoneEntry) (rows : List PhoneInput) : List String → CustomerState
  | [] =>
    (if fails then s else s.setTables (s.tables.createCustomer tenantId phones)).setCall n
      (importRows tenantId rows)
  | number :: todo =>
    s.setCall n (if fails || s.tables.taken tenantId number none then importRows tenantId rows
      else some (.create tenantId phones todo rows))

def updateNext (s : CustomerState) (n : Nat) (tenantId : String) (customerId : Nat) :
    UpdatePhase → CustomerState
  | .finding input =>
    match s.tables.findActive tenantId customerId, sanitizePhoneList input with
    | some _, .ok phones =>
      s.setCall n (some (.update tenantId customerId (.checking phones (numbers phones))))
    | _, _ => s.setCall n none
  | .checking phones [] => s.setCall n
      (some (.update tenantId customerId (.committing phones (s.tables.activeNumbers customerId))))
  | .checking phones (number :: todo) =>
    s.setCall n (if s.tables.taken tenantId number (some customerId) then none
      else some (.update tenantId customerId (.checking phones todo)))
  | .committing phones seen =>
    (s.setTables (s.tables.replacePhones customerId seen phones)).setCall n none

def deleteNext (s : CustomerState) (n : Nat) (tenantId : String) (customerId : Nat) :
    Bool → CustomerState
  | false => s.setCall n
      ((s.tables.findActive tenantId customerId).map fun _ => .delete tenantId customerId true)
  | true => (s.setTables (s.tables.deleteCustomer customerId)).setCall n none

def next (s : CustomerState) (n : Nat) (fails : Bool) : CustomerCall → CustomerState
  | .create tenantId phones todo rows => s.createNext n fails tenantId phones rows todo
  | .update tenantId customerId phase =>
    if fails then s.setCall n none else s.updateNext n tenantId customerId phase
  | .delete tenantId customerId found =>
    if fails then s.setCall n none else s.deleteNext n tenantId customerId found

end CustomerState

def customerStep (s : CustomerState) : CustomerAction → CustomerState
  | .createCustomer tenantId input => s.begin (importRows tenantId [input])
  | .updateCustomer tenantId customerId input =>
    s.begin (some (.update tenantId customerId (.finding input)))
  | .deleteCustomer tenantId customerId => s.begin (some (.delete tenantId customerId false))
  | .importCustomers tenantId rows => s.begin (importRows tenantId rows)
  | .next n fails =>
    match s.calls n with
    | none => s
    | some call => s.next n fails call

def noCustomers : CustomerState := ⟨⟨fun _ => none, 0, []⟩, fun _ => none, 0⟩

/-! ## 4. The condition -/

/-- The active primary phones of a customer. -/
def CustomerTables.primaries (t : CustomerTables) (customerId : Nat) : List CustomerPhone :=
  t.phones.filter fun p => p.customerId = customerId && p.isActive && p.isPrimary

/-- Two active customers of a tenant have no active number in common. -/
def CustomerTables.Apart (t : CustomerTables) : Prop :=
  ∀ p ∈ t.phones, ∀ q ∈ t.phones, p.isActive = true → q.isActive = true →
    p.normalizedPhone = q.normalizedPhone →
    ∀ c ∈ t.customers p.customerId, ∀ d ∈ t.customers q.customerId, c.active = true →
      d.active = true → c.tenantId = d.tenantId → p.customerId = q.customerId

/-- Moreover each active customer has one active primary phone. -/
structure OnePerNumber (t : CustomerTables) : Prop where
  apart : t.Apart
  primary : ∀ customerId, ∀ c ∈ t.customers customerId, c.active = true →
    (t.primaries customerId).length = 1

/-- No other active customer of the tenant has one of the numbers. -/
def Free (t : CustomerTables) (tenantId : String) (customerId : Nat) (phones : List PhoneEntry) :
    Prop :=
  ∀ p ∈ t.phones, p.isActive = true → p.customerId ≠ customerId →
    (t.findActive tenantId p.customerId).isSome = true → p.normalizedPhone ∉ numbers phones

/-- When a request writes, its numbers are still free, and the transaction of an update of an
active customer has seen the primary phone that is there. -/
def CustomerCall.WritesFree (t : CustomerTables) : CustomerCall → Prop
  | .create tenantId phones [] _ => Free t tenantId t.nextCustomer phones
  | .update tenantId customerId (.committing phones seen) =>
    (t.findActive tenantId customerId).isSome = true → t.unused customerId phones = true →
      Free t tenantId customerId phones ∧ ∀ p ∈ t.primaries customerId, p.normalizedPhone ∈ seen
  | _ => True

def StillFree (s : CustomerState) : CustomerAction → Prop
  | .next n fails => fails = false → ∀ call ∈ s.calls n, call.WritesFree s.tables
  | _ => True

/-! ## 5. What the writes do to the tables -/

variable {t : CustomerTables} {customerId id : Nat} {phones : List PhoneEntry} {tenantId : String}
  {c : Customer} {seen : List String}

theorem findActive_isSome (t : CustomerTables) (tenantId : String) (customerId : Nat) :
    (t.findActive tenantId customerId).isSome = true ↔
      ∃ c ∈ t.customers customerId, c.tenantId = tenantId ∧ c.active = true := by
  unfold CustomerTables.findActive
  cases t.customers customerId with
  | none => simp
  | some c => cases hc : c.active <;> simp [Option.filter, hc]

theorem mem_row {p : CustomerPhone} (h : p ∈ phones.map (·.row customerId)) :
    p.customerId = customerId ∧ p.normalizedPhone ∈ numbers phones := by
  obtain ⟨entry, hentry, rfl⟩ := List.mem_map.mp h
  exact ⟨rfl, List.mem_map_of_mem hentry⟩

theorem primaries_insertPhones (t : CustomerTables) (customerId id : Nat)
    (phones : List PhoneEntry) :
    (t.insertPhones customerId phones).primaries id =
      t.primaries id ++ if id = customerId then
        (phones.filter (·.isPrimary)).map (·.row customerId) else [] := by
  unfold CustomerTables.primaries CustomerTables.insertPhones
  rw [List.filter_append]
  congr 1
  rw [List.filter_map]
  split
  · next h =>
    congr 1
    exact List.filter_congr fun entry _ => by simp [PhoneEntry.row, h]
  · next h =>
    rw [List.filter_eq_nil_iff.mpr fun entry _ => by simp [PhoneEntry.row, Ne.symm h]]
    rfl

/-- What holds before the numbers of a customer are written. -/
structure ReadyFor (t : CustomerTables) (customerId : Nat) : Prop where
  apart : t.Apart
  primary : ∀ id ≠ customerId, ∀ c ∈ t.customers id, c.active = true → (t.primaries id).length = 1

/-- The numbers of an active customer may be written exactly when they are free and it has
no primary phone. -/
theorem insert_iff (h : ReadyFor t customerId) (hphones : Sanitized phones)
    (hc : t.customers customerId = some c) (hactive : c.active = true) :
    OnePerNumber (t.insertPhones customerId phones) ↔
      Free t c.tenantId customerId phones ∧ t.primaries customerId = [] := by
  constructor
  · intro hone
    refine ⟨?_, ?_⟩
    · intro p hp hisActive hother hfound hnumber
      obtain ⟨d, hd, htenant, hdactive⟩ := (findActive_isSome _ _ _).mp hfound
      obtain ⟨entry, hentry, hsame⟩ := List.mem_map.mp hnumber
      have hrow : entry.row customerId ∈ (t.insertPhones customerId phones).phones :=
        List.mem_append_right _ (List.mem_map_of_mem hentry)
      exact hother (hone.apart p (List.mem_append_left _ hp) _ hrow hisActive rfl hsame.symm d hd c hc
        hdactive hactive htenant)
    · have hlength := hone.primary customerId c hc hactive
      rw [primaries_insertPhones, if_pos rfl, List.length_append, List.length_map,
        hphones.primary] at hlength
      exact List.length_eq_zero_iff.mp (Nat.succ.inj hlength)
  · rintro ⟨hfree, hnone⟩
    -- An old phone with a new number belongs to the customer itself.
    have hold : ∀ p ∈ t.phones, p.isActive = true → p.normalizedPhone ∈ numbers phones →
        ∀ d ∈ t.customers p.customerId, d.active = true → d.tenantId = c.tenantId →
        p.customerId = customerId := by
      intro p hp hisActive hnumber d hd hdactive htenant
      by_contra hother
      exact hfree p hp hisActive hother ((findActive_isSome _ _ _).mpr ⟨d, hd, htenant, hdactive⟩)
        hnumber
    refine ⟨?_, ?_⟩
    · intro p hp q hq hpactive hqactive hsame d hd e he hdactive heactive htenant
      rcases List.mem_append.mp hp with hpold | hpnew
      · rcases List.mem_append.mp hq with hqold | hqnew
        · exact h.apart p hpold q hqold hpactive hqactive hsame d hd e he hdactive heactive htenant
        · obtain ⟨hqid, hqnumber⟩ := mem_row hqnew
          rw [hqid] at he ⊢
          obtain rfl := Option.some.inj (he.symm.trans hc)
          exact hold p hpold hpactive (hsame ▸ hqnumber) d hd hdactive htenant
      · obtain ⟨hpid, hpnumber⟩ := mem_row hpnew
        rcases List.mem_append.mp hq with hqold | hqnew
        · rw [hpid] at hd ⊢
          obtain rfl := Option.some.inj (hd.symm.trans hc)
          exact (hold q hqold hqactive (hsame ▸ hpnumber) e he heactive htenant.symm).symm
        · rw [hpid, (mem_row hqnew).1]
    · intro id d hd hdactive
      rw [primaries_insertPhones]
      by_cases hid : id = customerId
      · rw [if_pos hid, hid, hnone, List.nil_append, List.length_map, hphones.primary]
      · rw [if_neg hid, List.append_nil]
        exact h.primary id hid d hd hdactive

/-- What is written for a customer that is not active does not matter. -/
theorem insert_inactive (h : ReadyFor t customerId) (hc : t.customers customerId = some c)
    (hinactive : c.active = false) (phones : List PhoneEntry) :
    OnePerNumber (t.insertPhones customerId phones) := by
  have hnot : ∀ p ∈ phones.map (·.row customerId), ∀ d ∈ t.customers p.customerId,
      d.active = false := by
    intro p hp d hd
    rw [(mem_row hp).1, hc] at hd
    exact Option.some.inj hd ▸ hinactive
  refine ⟨?_, ?_⟩
  · intro p hp q hq hpactive hqactive hsame d hd e he hdactive heactive htenant
    rcases List.mem_append.mp hp with hpold | hpnew
    · rcases List.mem_append.mp hq with hqold | hqnew
      · exact h.apart p hpold q hqold hpactive hqactive hsame d hd e he hdactive heactive htenant
      · rw [hnot q hqnew e he] at heactive
        cases heactive
    · rw [hnot p hpnew d hd] at hdactive
      cases hdactive
  · intro id d hd hdactive
    have hid : id ≠ customerId := by
      rintro rfl
      rw [Option.some.inj (hd.symm.trans hc), hinactive] at hdactive
      cases hdactive
    rw [primaries_insertPhones, if_neg hid, List.append_nil]
    exact h.primary id hid d hd hdactive

/-- An active row after some were deactivated was there before. -/
theorem mem_deactivate {p : CustomerPhone} (hp : p ∈ (t.deactivate customerId seen).phones)
    (hactive : p.isActive = true) :
    p ∈ t.phones ∧ ¬ (p.customerId = customerId ∧ p.normalizedPhone ∈ seen) := by
  obtain ⟨old, hold, rfl⟩ := List.mem_map.mp hp
  by_cases hcond : (old.customerId = customerId && old.normalizedPhone ∈ seen) = true
  · rw [if_pos hcond] at hactive
    cases hactive
  · rw [if_neg hcond]
    exact ⟨hold, by simpa using hcond⟩

theorem mem_deactivate_of {p : CustomerPhone} (hp : p ∈ t.phones)
    (hkeeps : ¬ (p.customerId = customerId ∧ p.normalizedPhone ∈ seen)) :
    p ∈ (t.deactivate customerId seen).phones := by
  refine List.mem_map.mpr ⟨p, hp, if_neg ?_⟩
  simpa using hkeeps

/-- Rows that change drop out. -/
theorem filter_map_if {α : Type} (as : List α) {q p : α → Bool} {f : α → α}
    (h : ∀ a, p (f a) = false) :
    (as.map fun a => if q a then f a else a).filter p = as.filter fun a => !q a && p a := by
  induction as with
  | nil => rfl
  | cons a as ih =>
    rw [List.map_cons, List.filter_cons, List.filter_cons, ih]
    cases hq : q a <;> simp [h]

theorem primaries_deactivate (t : CustomerTables) (customerId id : Nat) (seen : List String) :
    (t.deactivate customerId seen).primaries id =
      if id = customerId then (t.primaries id).filter (·.normalizedPhone ∉ seen)
      else t.primaries id := by
  unfold CustomerTables.primaries CustomerTables.deactivate
  rw [filter_map_if t.phones (by simp)]
  split
  · next hid =>
    rw [List.filter_filter]
    refine List.filter_congr fun p _ => ?_
    by_cases hp : p.customerId = customerId <;> simp [hid, hp]
  · next hid =>
    refine List.filter_congr fun p _ => ?_
    by_cases hp : p.customerId = customerId
    · simp [hp, Ne.symm hid]
    · simp [hp]

theorem OnePerNumber.deactivate (h : OnePerNumber t) (customerId : Nat) (seen : List String) :
    ReadyFor (t.deactivate customerId seen) customerId := by
  refine ⟨?_, ?_⟩
  · intro p hp q hq hpactive hqactive
    exact h.apart p (mem_deactivate hp hpactive).1 q (mem_deactivate hq hqactive).1 hpactive hqactive
  · intro id hid c hc hactive
    rw [primaries_deactivate, if_neg hid]
    exact h.primary id c hc hactive

theorem free_deactivate : Free (t.deactivate customerId seen) tenantId customerId phones ↔
    Free t tenantId customerId phones := by
  constructor
  · intro h p hp hactive hother
    exact h p (mem_deactivate_of hp fun hsame => hother hsame.1) hactive hother
  · intro h p hp hactive hother
    exact h p (mem_deactivate hp hactive).1 hactive hother

/-- An update of an active customer keeps one customer for each number exactly when the
numbers are free and the transaction has seen its primary phone. -/
theorem replacePhones_iff (h : OnePerNumber t) (hphones : Sanitized phones)
    (hc : t.customers customerId = some c) :
    OnePerNumber (t.replacePhones customerId seen phones) ↔
      (c.active = true → t.unused customerId phones = true →
        Free t c.tenantId customerId phones ∧
          ∀ p ∈ t.primaries customerId, p.normalizedPhone ∈ seen) := by
  unfold CustomerTables.replacePhones
  split
  · next hunused =>
    have hready := h.deactivate customerId seen
    cases hactive : c.active with
    | false => exact iff_of_true (insert_inactive hready hc hactive phones) nofun
    | true =>
      rw [insert_iff hready hphones hc hactive, free_deactivate, primaries_deactivate, if_pos rfl,
        List.filter_eq_nil_iff]
      simp [hunused]
  · next hused => exact iff_of_true h fun _ hunused => absurd hunused hused

theorem setCustomer_self (t : CustomerTables) (customerId : Nat) (row : Customer) :
    (t.setCustomer customerId row).customers customerId = some row := if_pos rfl

theorem setCustomer_other (t : CustomerTables) (row : Customer) (h : id ≠ customerId) :
    (t.setCustomer customerId row).customers id = t.customers id := if_neg h

/-- A new customer keeps one customer for each number exactly when its numbers are free. -/
theorem createCustomer_iff (h : OnePerNumber t) (hphones : Sanitized phones)
    (howned : ∀ p ∈ t.phones, p.customerId < t.nextCustomer) :
    OnePerNumber (t.createCustomer tenantId phones) ↔ Free t tenantId t.nextCustomer phones := by
  have hother : ∀ p ∈ t.phones, (t.addCustomer ⟨tenantId, true⟩).customers p.customerId =
      t.customers p.customerId :=
    fun p hp => setCustomer_other t _ (Nat.ne_of_lt (howned p hp))
  have hready : ReadyFor (t.addCustomer ⟨tenantId, true⟩) t.nextCustomer := by
    refine ⟨?_, ?_⟩
    · intro p hp q hq hpactive hqactive hsame d hd e he
      exact h.apart p hp q hq hpactive hqactive hsame d (hother p hp ▸ hd) e (hother q hq ▸ he)
    · intro id hid d hd
      exact h.primary id d (setCustomer_other t _ hid ▸ hd)
  have hnone : (t.addCustomer ⟨tenantId, true⟩).primaries t.nextCustomer = [] := by
    refine List.filter_eq_nil_iff.mpr fun p hp => ?_
    simp [Nat.ne_of_lt (howned p hp)]
  have hfound : ∀ p ∈ t.phones, (t.addCustomer ⟨tenantId, true⟩).findActive tenantId p.customerId =
      t.findActive tenantId p.customerId := by
    intro p hp
    rw [CustomerTables.findActive, hother p hp, CustomerTables.findActive]
  rw [CustomerTables.createCustomer,
    insert_iff hready hphones (setCustomer_self t t.nextCustomer ⟨tenantId, true⟩) rfl, and_iff_left hnone]
  constructor
  · intro hfree p hp hactive hne hsome
    exact hfree p hp hactive hne ((hfound p hp).symm ▸ hsome)
  · intro hfree p hp hactive hne hsome
    exact hfree p hp hactive hne (hfound p hp ▸ hsome)

theorem OnePerNumber.deleteCustomer (h : OnePerNumber t) (customerId : Nat) :
    OnePerNumber (t.deleteCustomer customerId) := by
  unfold CustomerTables.deleteCustomer
  cases hrow : t.customers customerId with
  | none => exact h
  | some row =>
    have hready := h.deactivate customerId (t.activeNumbers customerId)
    -- A customer that is still active is not the one that was deleted.
    have hstays : ∀ id, ∀ d ∈ (t.setCustomer customerId { row with active := false }).customers id,
        d.active = true → id ≠ customerId ∧ d ∈ t.customers id := by
      intro id d hd hdactive
      have hid : id ≠ customerId := by
        rintro rfl
        rw [setCustomer_self] at hd
        rw [← Option.some.inj hd] at hdactive
        cases hdactive
      exact ⟨hid, setCustomer_other t _ hid ▸ hd⟩
    refine ⟨?_, ?_⟩
    · intro p hp q hq hpactive hqactive hsame d hd e he hdactive heactive
      exact hready.apart p hp q hq hpactive hqactive hsame d (hstays _ d hd hdactive).2 e
        (hstays _ e he heactive).2 hdactive heactive
    · intro id d hd hdactive
      obtain ⟨hid, hold⟩ := hstays id d hd hdactive
      exact hready.primary id hid d hold hdactive

/-! ## 6. What every step keeps -/

/-- A request writes sanitized numbers, an update those of a customer of its tenant. -/
def CustomerCall.Sound (t : CustomerTables) : CustomerCall → Prop
  | .create _ phones _ _ => Sanitized phones
  | .update tenantId customerId (.checking phones _) =>
    Sanitized phones ∧ ∃ c ∈ t.customers customerId, c.tenantId = tenantId
  | .update tenantId customerId (.committing phones _) =>
    Sanitized phones ∧ ∃ c ∈ t.customers customerId, c.tenantId = tenantId
  | _ => True

/-- Ids are given out one after the other. -/
structure Numbered (t : CustomerTables) : Prop where
  fresh : ∀ id, t.nextCustomer ≤ id → t.customers id = none
  owned : ∀ p ∈ t.phones, p.customerId < t.nextCustomer

structure Kept (s : CustomerState) : Prop where
  numbered : Numbered s.tables
  calls : ∀ n, ∀ call ∈ s.calls n, call.Sound s.tables

variable {t' : CustomerTables} {s : CustomerState} {n : Nat} {call : CustomerCall}

theorem CustomerCall.Sound.mono (h : call.Sound t)
    (howner : ∀ id, ∀ c ∈ t.customers id, ∃ d ∈ t'.customers id, d.tenantId = c.tenantId) :
    call.Sound t' := by
  have hcustomer : ∀ {id : Nat} {tenantId : String}, (∃ c ∈ t.customers id, c.tenantId = tenantId) →
      ∃ d ∈ t'.customers id, d.tenantId = tenantId := by
    rintro id tenantId ⟨c, hc, rfl⟩
    exact howner id c hc
  match call, h with
  | .create .., h => exact h
  | .update _ _ (.finding _), _ => trivial
  | .update _ _ (.checking ..), ⟨hphones, howned⟩ => exact ⟨hphones, hcustomer howned⟩
  | .update _ _ (.committing ..), ⟨hphones, howned⟩ => exact ⟨hphones, hcustomer howned⟩
  | .delete .., _ => trivial

theorem Kept.setCall (h : Kept s) (n : Nat) {after : Option CustomerCall}
    (hafter : ∀ call ∈ after, call.Sound s.tables) : Kept (s.setCall n after) := by
  refine ⟨h.numbered, fun m call hcall => ?_⟩
  simp only [CustomerState.setCall] at hcall
  split at hcall
  · exact hafter call hcall
  · exact h.calls m call hcall

theorem Kept.endCall (h : Kept s) (n : Nat) : Kept (s.setCall n none) :=
  h.setCall n (by rintro _ ⟨⟩)

theorem Kept.setTables (h : Kept s) (hnumbered : Numbered t')
    (howner : ∀ id, ∀ c ∈ s.tables.customers id, ∃ d ∈ t'.customers id, d.tenantId = c.tenantId) :
    Kept (s.setTables t') :=
  ⟨hnumbered, fun m call hcall => (h.calls m call hcall).mono howner⟩

theorem importRows_sound (tenantId : String) (rows : List PhoneInput) :
    ∀ call ∈ importRows tenantId rows, call.Sound t := by
  induction rows with
  | nil => rintro _ ⟨⟩
  | cons row rows ih =>
    rw [importRows]
    cases hphones : sanitizePhoneList row with
    | error _ => exact ih
    | ok phones =>
      rintro _ ⟨⟩
      exact sanitizePhoneList_ok hphones

theorem Numbered.insertPhones (h : Numbered t) (hid : customerId < t.nextCustomer)
    (phones : List PhoneEntry) : Numbered (t.insertPhones customerId phones) := by
  refine ⟨h.fresh, fun p hp => ?_⟩
  rcases List.mem_append.mp hp with hold | hnew
  · exact h.owned p hold
  · rw [(mem_row hnew).1]
    exact hid

theorem Numbered.deactivate (h : Numbered t) (customerId : Nat) (seen : List String) :
    Numbered (t.deactivate customerId seen) := by
  refine ⟨h.fresh, fun p hp => ?_⟩
  obtain ⟨old, hold, rfl⟩ := List.mem_map.mp hp
  have hlt := h.owned old hold
  split <;> exact hlt

theorem Numbered.lt (h : Numbered t) (hc : t.customers id = some c) : id < t.nextCustomer := by
  by_contra hge
  rw [h.fresh id (Nat.le_of_not_lt hge)] at hc
  cases hc

theorem Kept.createCustomer (h : Kept s) (tenantId : String) (phones : List PhoneEntry) :
    Kept (s.setTables (s.tables.createCustomer tenantId phones)) := by
  refine h.setTables (Numbered.insertPhones ⟨?_, ?_⟩ (Nat.lt_succ_self _) phones) ?_
  · intro id hid
    have hne : id ≠ s.tables.nextCustomer := Nat.ne_of_gt hid
    exact (setCustomer_other s.tables _ hne).trans (h.numbered.fresh id (Nat.le_of_succ_le hid))
  · exact fun p hp => Nat.lt_succ_of_lt (h.numbered.owned p hp)
  · intro id c hc
    have hne : id ≠ s.tables.nextCustomer := Nat.ne_of_lt (h.numbered.lt hc)
    exact ⟨c, (setCustomer_other s.tables _ hne).trans hc, rfl⟩

theorem Kept.replacePhones (h : Kept s) (hc : s.tables.customers customerId = some c)
    (seen : List String) (phones : List PhoneEntry) :
    Kept (s.setTables (s.tables.replacePhones customerId seen phones)) := by
  unfold CustomerTables.replacePhones
  split
  · exact h.setTables ((h.numbered.deactivate customerId seen).insertPhones (h.numbered.lt hc) phones)
      fun id d hd => ⟨d, hd, rfl⟩
  · exact h

theorem Kept.deleteCustomer (h : Kept s) (customerId : Nat) :
    Kept (s.setTables (s.tables.deleteCustomer customerId)) := by
  unfold CustomerTables.deleteCustomer
  cases hrow : s.tables.customers customerId with
  | none => exact h
  | some row =>
    have hnumbered := h.numbered.deactivate customerId (s.tables.activeNumbers customerId)
    refine h.setTables ⟨fun id hid => ?_, hnumbered.owned⟩ fun id c hc => ?_
    · have hne : id ≠ customerId := fun hsame =>
        absurd (h.numbered.lt hrow) (Nat.not_lt.mpr (hsame ▸ hid))
      exact (setCustomer_other _ _ hne).trans (h.numbered.fresh id hid)
    · by_cases hid : id = customerId
      · rw [hid, Option.mem_def, hrow] at hc
        obtain rfl := Option.some.inj hc
        rw [hid]
        exact ⟨_, setCustomer_self _ _ _, rfl⟩
      · exact ⟨c, (setCustomer_other _ _ hid).trans hc, rfl⟩

theorem Kept.updateNext (h : Kept s) {phase : UpdatePhase}
    (hcall : s.calls n = some (.update tenantId customerId phase)) :
    Kept (s.updateNext n tenantId customerId phase) := by
  have hsound := h.calls n _ hcall
  match phase, hsound with
  | .finding input, _ =>
    rw [CustomerState.updateNext]
    split
    · next c phones hfound hphones =>
      have hsome := (findActive_isSome s.tables tenantId customerId).mp (by rw [hfound]; rfl)
      obtain ⟨d, hd, htenant, -⟩ := hsome
      refine h.setCall n ?_
      rintro _ ⟨⟩
      exact ⟨sanitizePhoneList_ok hphones, d, hd, htenant⟩
    · exact h.endCall n
  | .checking phones [], hsound =>
    refine h.setCall n ?_
    rintro _ ⟨⟩
    exact hsound
  | .checking phones (number :: todo), hsound =>
    refine h.setCall n fun call hafter => ?_
    split at hafter
    · cases hafter
    · obtain rfl := Option.some.inj hafter
      exact hsound
  | .committing phones seen, ⟨_, c, hc, _⟩ => exact (h.replacePhones hc seen phones).endCall n

theorem Kept.createNext (h : Kept s) {phones : List PhoneEntry} {todo : List String}
    {rows : List PhoneInput} (hcall : s.calls n = some (.create tenantId phones todo rows))
    (fails : Bool) : Kept (s.createNext n fails tenantId phones rows todo) := by
  cases todo with
  | nil =>
    cases fails with
    | true => exact h.setCall n (importRows_sound tenantId rows)
    | false => exact (h.createCustomer tenantId phones).setCall n (importRows_sound tenantId rows)
  | cons number todo =>
    refine h.setCall n fun call hafter => ?_
    split at hafter
    · exact importRows_sound tenantId rows call hafter
    · have hsound : Sanitized phones := h.calls n _ hcall
      obtain rfl := Option.some.inj hafter
      exact hsound

theorem Kept.begin (h : Kept s) {call : Option CustomerCall}
    (hcall : ∀ c ∈ call, c.Sound s.tables) : Kept (s.begin call) :=
  Kept.setCall (s := { s with nextCall := s.nextCall + 1 }) ⟨h.numbered, h.calls⟩ _ hcall

theorem customerStep_kept (h : Kept s) (action : CustomerAction) : Kept (customerStep s action) := by
  cases action with
  | createCustomer tenantId input => exact h.begin (importRows_sound tenantId [input])
  | updateCustomer tenantId customerId input => exact h.begin (by rintro _ ⟨⟩; trivial)
  | deleteCustomer tenantId customerId => exact h.begin (by rintro _ ⟨⟩; trivial)
  | importCustomers tenantId rows => exact h.begin (importRows_sound tenantId rows)
  | next n fails =>
    rw [customerStep]
    cases hcall : s.calls n with
    | none => exact h
    | some call =>
      cases call with
      | create tenantId phones todo rows => exact h.createNext hcall fails
      | update tenantId customerId phase =>
        cases fails with
        | true => exact h.endCall n
        | false => exact h.updateNext hcall
      | delete tenantId customerId found =>
        cases fails with
        | true => exact h.endCall n
        | false =>
          cases found with
          | true => exact (h.deleteCustomer customerId).endCall n
          | false =>
            refine h.setCall n fun call hafter => ?_
            obtain ⟨_, _, rfl⟩ := Option.map_eq_some_iff.mp hafter
            trivial

/-! ## 7. Runs -/

/-- Where a request goes on, what it writes keeps one customer for each number exactly when
it is still free. -/
theorem next_one (h : Kept s) (hone : OnePerNumber s.tables) (hcall : s.calls n = some call) :
    OnePerNumber (s.next n false call).tables ↔ call.WritesFree s.tables := by
  have hsound := h.calls n call hcall
  match call, hsound with
  | .create tenantId phones [] rows, hphones =>
    exact createCustomer_iff hone hphones h.numbered.owned
  | .create tenantId phones (number :: todo) rows, _ => exact iff_of_true hone trivial
  | .update tenantId customerId (.finding input), _ =>
    refine iff_of_true ?_ trivial
    show OnePerNumber (s.updateNext n tenantId customerId (.finding input)).tables
    rw [CustomerState.updateNext]
    split <;> exact hone
  | .update tenantId customerId (.checking phones []), _ => exact iff_of_true hone trivial
  | .update tenantId customerId (.checking phones (number :: todo)), _ =>
    exact iff_of_true hone trivial
  | .update tenantId customerId (.committing phones seen), ⟨hphones, c, hc, htenant⟩ =>
    refine (replacePhones_iff hone hphones hc).trans ?_
    have hactive : (s.tables.findActive tenantId customerId).isSome = true ↔ c.active = true := by
      rw [findActive_isSome]
      constructor
      · rintro ⟨d, hd, -, hdactive⟩
        exact Option.some.inj (hc.symm.trans hd) ▸ hdactive
      · exact fun hcactive => ⟨c, hc, htenant, hcactive⟩
    rw [CustomerCall.WritesFree, hactive, htenant]
  | .delete tenantId customerId false, _ => exact iff_of_true hone trivial
  | .delete tenantId customerId true, _ => exact iff_of_true (hone.deleteCustomer customerId) trivial

/-- Where a statement fails, nothing is written. -/
theorem next_fails (s : CustomerState) (n : Nat) (call : CustomerCall) :
    (s.next n true call).tables = s.tables := by
  match call with
  | .create _ _ [] _ => rfl
  | .create _ _ (_ :: _) _ => rfl
  | .update .. => rfl
  | .delete .. => rfl

/-- A step keeps one customer for each number exactly when what it writes is still free. -/
theorem customerStep_one (h : Kept s) (hone : OnePerNumber s.tables) (action : CustomerAction) :
    OnePerNumber (customerStep s action).tables ↔ StillFree s action := by
  cases action with
  | createCustomer tenantId input => exact iff_of_true hone trivial
  | updateCustomer tenantId customerId input => exact iff_of_true hone trivial
  | deleteCustomer tenantId customerId => exact iff_of_true hone trivial
  | importCustomers tenantId rows => exact iff_of_true hone trivial
  | next n fails =>
    rw [customerStep]
    cases hcall : s.calls n with
    | none =>
      refine iff_of_true hone fun _ call hmem => ?_
      rw [hcall] at hmem
      cases hmem
    | some call =>
      cases fails with
      | true => exact iff_of_true ((next_fails s n call).symm ▸ hone) nofun
      | false =>
        refine (next_one h hone hcall).trans ⟨fun hfree _ other hother => ?_, fun hall => ?_⟩
        · exact Option.some.inj (hcall.symm.trans hother) ▸ hfree
        · exact hall rfl call hcall

theorem kept_noCustomers : Kept noCustomers :=
  ⟨⟨fun _ _ => rfl, nofun⟩, nofun⟩

theorem one_noCustomers : OnePerNumber noCustomers.tables :=
  ⟨List.forall_mem_nil _, by rintro _ _ ⟨⟩⟩

/-- Every active customer has an active primary phone. -/
def CustomerTables.Dialable (t : CustomerTables) : Prop :=
  ∀ id, ∀ c ∈ t.customers id, c.active = true → t.primaries id ≠ []

theorem insertPhones_dialable (hphones : Sanitized phones)
    (h : ∀ id ≠ customerId, ∀ c ∈ t.customers id, c.active = true → t.primaries id ≠ []) :
    (t.insertPhones customerId phones).Dialable := by
  intro id c hc hactive
  rw [primaries_insertPhones]
  by_cases hid : id = customerId
  · have hprimary : (phones.filter (·.isPrimary)).map (·.row customerId) ≠ [] := by
      intro hnil
      have hone := hphones.primary
      rw [List.map_eq_nil_iff.mp hnil] at hone
      cases hone
    rw [if_pos hid]
    exact List.append_ne_nil_of_right_ne_nil _ hprimary
  · exact List.append_ne_nil_of_left_ne_nil (h id hid c hc hactive) _

theorem CustomerTables.Dialable.deactivate (h : t.Dialable) (customerId : Nat) (seen : List String) :
    ∀ id ≠ customerId, ∀ c ∈ t.customers id, c.active = true →
      (t.deactivate customerId seen).primaries id ≠ [] := by
  intro id hid c hc hactive
  rw [primaries_deactivate, if_neg hid]
  exact h id c hc hactive

/-- An update takes the primary phones it has seen and brings one; a customer that is
deleted needs none. -/
theorem next_dialable (h : Kept s) (hdial : s.tables.Dialable) (hcall : s.calls n = some call) :
    (s.next n false call).tables.Dialable := by
  match call, h.calls n call hcall with
  | .create tenantId phones [] rows, hphones =>
    refine insertPhones_dialable hphones fun id hid c hc hactive => ?_
    exact hdial id c (setCustomer_other s.tables _ hid ▸ hc) hactive
  | .create tenantId phones (number :: todo) rows, _ => exact hdial
  | .update tenantId customerId (.finding input), _ =>
    show (s.updateNext n tenantId customerId (.finding input)).tables.Dialable
    rw [CustomerState.updateNext]
    split <;> exact hdial
  | .update tenantId customerId (.checking phones []), _ => exact hdial
  | .update tenantId customerId (.checking phones (number :: todo)), _ => exact hdial
  | .update tenantId customerId (.committing phones seen), ⟨hphones, _⟩ =>
    show (s.tables.replacePhones customerId seen phones).Dialable
    unfold CustomerTables.replacePhones
    split
    · exact insertPhones_dialable hphones (hdial.deactivate customerId seen)
    · exact hdial
  | .delete tenantId customerId false, _ => exact hdial
  | .delete tenantId customerId true, _ =>
    show (s.tables.deleteCustomer customerId).Dialable
    unfold CustomerTables.deleteCustomer
    cases hrow : s.tables.customers customerId with
    | none => exact hdial
    | some row =>
      intro id c hc hactive
      by_cases hid : id = customerId
      · subst hid
        obtain rfl := Option.some.inj ((setCustomer_self _ _ _).symm.trans hc)
        cases hactive
      · exact hdial.deactivate _ _ id hid c ((setCustomer_other _ _ hid).symm.trans hc) hactive

theorem customerStep_dialable (h : Kept s) (hdial : s.tables.Dialable) (action : CustomerAction) :
    (customerStep s action).tables.Dialable := by
  cases action with
  | next n fails =>
    rw [customerStep]
    cases hcall : s.calls n with
    | none => exact hdial
    | some call =>
      cases fails with
      | true => exact (next_fails s n call).symm ▸ hdial
      | false => exact next_dialable h hdial hcall
  | _ => exact hdial

/-- Whatever requests overlap, an active customer is never without an active primary phone. -/
theorem primary_phone_stays (actions : List CustomerAction) :
    (actions.foldl customerStep noCustomers).tables.Dialable := by
  have hrun : Kept (actions.foldl customerStep noCustomers) ∧
      (actions.foldl customerStep noCustomers).tables.Dialable :=
    List.foldlRecOn (motive := fun s => Kept s ∧ s.tables.Dialable) actions _
      ⟨kept_noCustomers, nofun⟩ fun _ ⟨hkept, hdial⟩ action _ =>
        ⟨customerStep_kept hkept action, customerStep_dialable hkept hdial action⟩
  exact hrun.2

/-! ## 9. Two requests with one number -/

def exInput : PhoneInput := ⟨"010-1234-5678", []⟩

/-- Both have checked the number before either writes it. -/
def exTwo : List CustomerAction :=
  [.createCustomer "t1" exInput, .createCustomer "t1" exInput, .next 0 false, .next 1 false,
    .next 0 false, .next 1 false]

def exPhone (customerId : Nat) : CustomerPhone :=
  ⟨customerId, "010-1234-5678", "01012345678", true, true⟩

end KasterCti.Customers
